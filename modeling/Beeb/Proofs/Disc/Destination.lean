import Beeb.Disc.Encoding
import Beeb.Proofs.Disc.Extraction
import Mathlib.Data.List.Basic

/-
  Where extracted files end up: at the paths that their
  names make below the output directory.

  Two files may have one path, and then only the later one
  is kept.  A name that holds a slash may lead out of the
  directory.

  Main declarations:
    * `Path.ofString_of_plain`
    * `Disc.contents_kept_iff`
    * `Disc.locate_target_of_plain`
    * `Disc.changed_file_in_directory`
-/

------------------------------------------------------------
-- Files That Are Kept
------------------------------------------------------------

namespace Beeb

namespace Disc

/-
  An extraction into a directory that does not fail gives
  the paths of the selected entries, in the order of the
  catalogue, and changes nothing but the files there. Each
  can then be read as it is in the image if no later entry
  goes to the same place. All can, if and only if any two
  that go to one place have the same contents.
-/
theorem contents_kept_iff
    (image : Image)
    (names : List String)
    (out : Path)
    (t : FileTree)
    (hOut : t.kind? out = some .directory)
    (hDone :
      ((extract image names out : StateM FileTree _)
        t).1.failure = none) :
    let r := (extract image names out : StateM FileTree _) t
    let selected :=
      image.entries.filter fun e =>
        names = [] ∨ e.filename ∈ names
    let kept := fun e : Entry =>
      ∃ bytes,
        image.contents e = .ok bytes ∧
          r.2.read (e.target out) = .ok bytes
    r.1.written = selected.map (Entry.target out) ∧
      (∀ location,
        r.2.node? location ≠ t.node? location →
          ∃ path ∈ r.1.written,
            t.locate path = .ok location) ∧
      (∀ before e after,
        selected = before ++ e :: after →
          (∀ later ∈ after,
            t.locate (later.target out) ≠
              t.locate (e.target out)) →
            kept e) ∧
      ((∀ e ∈ selected, kept e) ↔
        ∀ e ∈ selected, ∀ other ∈ selected,
          t.locate (e.target out) =
              t.locate (other.target out) →
            image.contents e = image.contents other) := by
  intro r selected kept
  rcases extracts image names out t with ⟨built, done, hRun⟩
  have hBuilt := hRun.existing hOut
  subst hBuilt
  have hFind : image.find names = selected := image.find_eq names
  have hSelected : done.map Prod.fst = selected :=
    (hRun.finished hDone).trans hFind
  have hWritten :
      r.1.written = selected.map (Entry.target out) := by
    rw [← hSelected, List.map_map]
    exact hRun.written
  refine ⟨hWritten, ?_, ?_, ?_, ?_⟩
  · -- What has changed was written.
    intro location hChanged
    rcases hRun.wrote.node?_eq_or location with
      hSame | ⟨file, hMem, hLocate, -⟩
    · exact absurd hSame hChanged
    · refine ⟨file.1.target out, ?_, hLocate⟩
      rw [hWritten, ← hSelected]
      exact List.mem_map_of_mem (List.mem_map_of_mem hMem)
  · -- The last file at a place is kept.
    intro before e after hSplit hLast
    rw [← hSelected] at hSplit
    rcases List.map_eq_append_iff.mp hSplit with
      ⟨first, second, rfl, rfl, hSecond⟩
    rcases List.map_eq_cons_iff.mp hSecond with
      ⟨file, rest, rfl, rfl, rfl⟩
    apply Extracts.kept_of_last first rest file hRun
    intro later hMem hSame
    exact
      absurd hSame
        (hLast later.1 (List.mem_map_of_mem hMem))
  · -- Two files that are kept at one place are the same.
    intro hKept e he other hOther hSame
    rcases hKept e he with ⟨bytes, hBytes, hRead⟩
    rcases hKept other hOther with ⟨bytes', hBytes', hRead'⟩
    rcases hRun.exists_file hDone e (by rwa [hFind]) with
      ⟨_, hMem, -⟩
    rw [hBytes, hBytes',
      hRun.wrote.read_unique _ (other, bytes') bytes bytes' hMem
        hSame hRead hRead']
  · -- A file is not lost to one with the same contents.
    intro hAgree e he
    rcases hRun.exists_file hDone e (by rwa [hFind]) with
      ⟨bytes, hMem, -⟩
    rcases List.append_of_mem hMem with ⟨before, after, rfl⟩
    apply Extracts.kept_of_last before after (e, bytes) hRun
    intro later hLater hSame
    have hOther : later.1 ∈ selected := by
      rw [← hSelected]
      exact List.mem_map_of_mem (by simp [hLater])
    exact (hAgree e he later.1 hOther hSame.symm).symm

/-
  A disc with two files of one name, in two directories of
  the disc.
-/
def twins : Volume :=
  { title := "", sectors := 4, bootOption := 0, cycle := 0
    files :=
      [⟨{ filename := "A", length := 1, startSector := 2 },
          #[1], rfl⟩,
        ⟨{ filename := "A", directory := "B", length := 1,
            startSector := 3 },
          #[2], rfl⟩] }

/- The bytes of this disc. -/
def twinsData : Bytes :=
  (twins.catalogue ++ [1] ++ List.replicate 255 0 ++
    [2]).toArray

/- What its catalogue says. -/
def twinsImage : Image :=
  { title := "", sectors := 4, bootOption := 0, cycle := 0
    entries := twins.files.map StoredFile.entry
    data := twinsData }

/- Parsing the bytes gives this image. -/
theorem parse_twins :
    Image.parse twinsData = .ok twinsImage := by
  rw [Image.parse_eq_ok twinsData twinsImage.entries
    (by decide +kernel) (by decide +kernel)]
  simp only [twinsImage, Except.ok.injEq, Image.mk.injEq,
    and_true]
  decide +kernel

/- Two files of one name: only one of them is kept. -/
theorem contents_kept_iff_twins :
    let e : Entry :=
      { filename := "A", length := 1, startSector := 2 }
    let other : Entry :=
      { e with directory := "B", startSector := 3 }
    let out : Path := .ofString "o"
    let t : FileTree := FileTree.put {} ["o"] .directory
    ∃ image,
      Image.parse twinsData = .ok image ∧
        image.entries = [e, other] ∧
        let r := (extract image [] out : StateM FileTree _) t
        t.kind? out = some .directory ∧
          r.1.failure = none ∧
          r.1.written = [e.target out, other.target out] ∧
          ¬ ∀ selected ∈ [e, other],
            ∃ bytes,
              image.contents selected = .ok bytes ∧
                r.2.read (selected.target out) =
                  .ok bytes := by
  intro e other out t
  have hEntries : twinsImage.entries = [e, other] := rfl
  have hOut : t.kind? out = some .directory := by
    decide +kernel
  have hDone :
      ((extract twinsImage [] out : StateM FileTree _)
        t).1.failure = none := by
    decide +kernel
  rcases contents_kept_iff twinsImage [] out t hOut hDone with
    ⟨hWritten, -, -, hKept⟩
  simp only [true_or, decide_true, List.filter_true, hEntries]
    at hWritten hKept
  refine
    ⟨twinsImage, parse_twins, hEntries, hOut, hDone, hWritten,
      fun hAll => ?_⟩
  have hSame :=
    hKept.mp hAll e (by simp) other (by simp)
      (by decide +kernel)
  exact absurd hSame (by decide +kernel)

/-
  A file can be lost: the second of the two is written over
  the first.
-/
theorem later_file_replaces_earlier :
    ∃ image,
      Image.parse twinsData = .ok image ∧
        let out : Path := .ofString "o"
        let t : FileTree := FileTree.put {} ["o"] .directory
        let r := (extract image [] out : StateM FileTree _) t
        t.kind? out = some .directory ∧
          r.1.failure = none ∧
          r.1.written = image.entries.map (Entry.target out) ∧
          image.entries.map image.contents =
            [.ok #[1], .ok #[2]] ∧
          r.1.written.map r.2.read = [.ok #[2], .ok #[2]] := by
  refine ⟨twinsImage, parse_twins, ?_⟩
  decide +kernel

end Disc

end Beeb

------------------------------------------------------------
-- Names That Stay In A Directory
------------------------------------------------------------

namespace Beeb

/- A text without a slash is a path of one part or none. -/
theorem Path.ofString_of_plain
    (text : String)
    (hPlain : '/' ∉ text.toList) :
    Path.ofString text =
      ⟨0, if Path.keeps text then [text] else []⟩ := by
  have hParts : Text.split '/' text = [text] := by
    rw [Text.split, Text.splitChars_of_notMem _ _ hPlain]
    simp
  have hLeading :
      text.toList.takeWhile (· = '/') = [] := by
    cases hText : text.toList with
    | nil => rfl
    | cons c cs =>
      have hc : c ≠ '/' := by
        rintro rfl
        simp [hText] at hPlain
      simp [hc]
  simp only [Path.ofString, hLeading, hParts]
  congr 1
  cases hKeeps : Path.keeps text <;> simp [hKeeps]

namespace Disc

/-
  In a well-formed tree a file whose name has no slash can
  only be written into the directory itself.
-/
theorem locate_target_of_plain
    (out : Path)
    (t : FileTree)
    (e : Entry)
    (location : Location)
    (hTree : t.WellFormed)
    (hOut : t.kind? out = some .directory)
    (hPlain : '/' ∉ e.filename.toList)
    (hLocate : t.locate (e.target out) = .ok location)
    (hNew : t.node? location ≠ some .directory) :
    ∃ directory,
      t.locate out = .ok directory ∧
        location = directory ++ [e.filename] := by
  rcases (t.kind?_eq_directory_iff out).mp hOut with
    ⟨directory, hDirectory, hNode⟩
  refine ⟨directory, hDirectory, ?_⟩
  rw [Entry.target, Path.ofString_of_plain _ hPlain,
    Path.join, if_pos rfl] at hLocate
  rw [FileTree.locate_eq_ok_iff] at hLocate hDirectory
  rcases hLocate with ⟨-, hFollow⟩
  simp only [FileTree.follow_append, hDirectory.2,
    Except.bind] at hFollow
  split at hFollow
  · simp only [FileTree.follow, hNode, FileTree.enter]
      at hFollow
    split at hFollow
    · -- `..` leads to a directory, where no file is written.
      rw [← Except.ok.inj hFollow] at hNew
      exact
        absurd (hTree.directory_above directory hNode) hNew
    · exact (Except.ok.inj hFollow).symm
  · rw [FileTree.follow] at hFollow
    rw [← Except.ok.inj hFollow] at hNew
    exact absurd hNode hNew

/-
  Whether an extraction fails or not, what is different
  afterwards is a new directory, or a file that a selected
  entry was written to. If the name of the entry has no
  slash, then the file is in the output directory and bears
  this name.
-/
theorem changed_file_in_directory
    (image : Image)
    (names : List String)
    (out : Path)
    (t : FileTree)
    (hTree : t.WellFormed) :
    let r := (extract image names out : StateM FileTree _) t
    ∀ location,
      r.2.node? location ≠ t.node? location →
        (t.node? location = none ∧
            r.2.node? location = some .directory) ∨
          ∃ e ∈ image.entries,
            ∃ bytes,
              (names = [] ∨ e.filename ∈ names) ∧
                image.contents e = .ok bytes ∧
                r.2.node? location = some (.file bytes) ∧
                r.2.locate (e.target out) = .ok location ∧
                ('/' ∉ e.filename.toList →
                  ∃ directory,
                    r.2.locate out = .ok directory ∧
                      location =
                        directory ++ [e.filename]) := by
  intro r location hChanged
  rcases extracts image names out t with ⟨built, done, hRun⟩
  have hWrote : Wrote out built done r.2 := hRun.wrote
  rcases hWrote.node?_eq_or location with
    hSame | ⟨file, hMem, hLocate, hNew, hNode⟩
  · rcases hRun.builds.node location with hOld | hMade
    · exact absurd (hSame.trans hOld) hChanged
    · exact .inl ⟨hMade.1, hSame.trans hMade.2⟩
  have hSelected :
      file.1 ∈ image.entries ∧
        (names = [] ∨ file.1.filename ∈ names) := by
    have hFound : file.1 ∈ image.find names :=
      hRun.selected.subset (List.mem_map_of_mem hMem)
    rw [image.find_eq names, List.mem_filter] at hFound
    simpa using hFound
  refine
    .inr
      ⟨file.1, hSelected.1, file.2, hSelected.2,
        hRun.contents file hMem, hNode,
        (hWrote.locate_iff _ _).mpr hLocate, ?_⟩
  intro hPlain
  rcases locate_target_of_plain out built file.1 location
      (hRun.builds.wellFormed hTree)
      (hRun.directory (.inl (List.ne_nil_of_mem hMem)))
      hPlain hLocate hNew with
    ⟨directory, hDirectory, hIs⟩
  exact
    ⟨directory, (hWrote.locate_iff _ _).mpr hDirectory, hIs⟩

/- A new directory in a new directory, and a file in it. -/
theorem changed_file_in_directory_new :
    ∃ image,
      Image.parse twinsData = .ok image ∧
        let out : Path := .ofString "o/p"
        let r :=
          (extract image ["A"] out : StateM FileTree _) {}
        FileTree.WellFormed {} ∧
          r.2.node? ["o", "p", "A"] ≠
            FileTree.node? {} ["o", "p", "A"] ∧
          r.2.node? ["o", "p", "A"] = some (.file #[2]) ∧
          ∃ directory,
            r.2.locate out = .ok directory ∧
              ["o", "p", "A"] = directory ++ ["A"] := by
  refine ⟨twinsImage, parse_twins, ?_⟩
  intro out r
  have hNode :
      r.2.node? ["o", "p", "A"] = some (.file #[2]) := by
    decide +kernel
  have hChanged :
      r.2.node? ["o", "p", "A"] ≠
        FileTree.node? {} ["o", "p", "A"] := by
    rw [hNode]
    decide +kernel
  refine ⟨FileTree.wellFormed_empty, hChanged, hNode, ?_⟩
  rcases changed_file_in_directory twinsImage ["A"] out {}
      FileTree.wellFormed_empty _ hChanged with
    ⟨-, hDirectory⟩ | ⟨e, -, bytes, hName, -, -, -, hPlain⟩
  · rw [hNode] at hDirectory
    cases hDirectory
  · have hIs : e.filename = "A" := by simpa using hName
    rw [hIs] at hPlain
    exact hPlain (by decide)

/- A disc with a file whose name holds slashes. -/
def climber : Volume :=
  { title := "", sectors := 3, bootOption := 0, cycle := 0
    files :=
      [⟨{ filename := "../X", length := 1, startSector := 2 },
        #[7], rfl⟩] }

/- The bytes of this disc. -/
def climberData : Bytes :=
  (climber.catalogue ++ [7]).toArray

/-
  A file can be written outside the output directory: here
  beside it.
-/
theorem slash_leads_out :
    ∃ image,
      Image.parse climberData = .ok image ∧
        let out : Path := .ofString "o"
        let t : FileTree := FileTree.put {} ["o"] .directory
        let r := (extract image [] out : StateM FileTree _) t
        r.1.failure = none ∧
          r.2.locate out = .ok ["o"] ∧
          t.node? ["X"] = none ∧
          r.2.node? ["X"] = some (.file #[7]) ∧
          ["X"].dropLast ≠ ["o"] := by
  refine
    ⟨_,
      Image.parse_eq_ok climberData
        (climber.files.map StoredFile.entry) (by decide +kernel)
        (by decide +kernel),
      ?_⟩
  decide +kernel

end Disc

end Beeb
