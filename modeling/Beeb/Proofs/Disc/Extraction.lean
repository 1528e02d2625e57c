import Beeb.Disc.Extraction
import Beeb.Proofs.Attempts
import Beeb.Proofs.Files.Tree

/-
  What an extraction does to a tree: it may make directories
  on the way to its own, and then writes one file for each
  of the selected entries, in order, until one is refused.

  Main declarations:
    * `Disc.Entry.target`
    * `Disc.Wrote`
    * `Disc.Wrote.node?_eq_or`
    * `Disc.Wrote.read_of_last`
    * `Disc.Extracts`
    * `Disc.extracts`
    * `Disc.Extracts.kept_of_last`
-/

------------------------------------------------------------
-- Written Files
------------------------------------------------------------

namespace Beeb

namespace Disc

/- The path at which a file is written. -/
def Entry.target
    (out : Path)
    (e : Entry) : Path :=
  out.join (.ofString e.filename)

/-
  What files do to a tree that are written to a directory
  one after the other.
-/
inductive Wrote
    (out : Path) :
    FileTree → List (Entry × Bytes) → FileTree → Prop where
| nothing (t : FileTree) : Wrote out t [] t
| file
    {t u : FileTree}
    {rest : List (Entry × Bytes)}
    (e : Entry)
    (bytes : Bytes)
    (location : Location)
    (hLocate : t.locate (e.target out) = .ok location)
    (hNew : t.node? location ≠ some .directory)
    (hRest :
      Wrote out (t.put location (.file bytes)) rest u) :
  Wrote out t ((e, bytes) :: rest) u

namespace Wrote

open FileTree

variable {out : Path}
variable {t u : FileTree}
variable {files : List (Entry × Bytes)}

/- A path leads where it led before files were written. -/
theorem locate_iff
    (hWrote : Wrote out t files u)
    (path : Path)
    (location : Location) :
    u.locate path = .ok location ↔
      t.locate path = .ok location := by
  induction hWrote with
  | nothing t => rfl
  | file e bytes here hLocate hNew hRest ih =>
    exact ih.trans (locate_put_file_iff _ here _ _ path hNew)

/- Each file was written somewhere, where no directory is. -/
theorem exists_location
    (hWrote : Wrote out t files u)
    (file : Entry × Bytes)
    (hMem : file ∈ files) :
    ∃ location,
      t.locate (file.1.target out) = .ok location ∧
        t.node? location ≠ some .directory := by
  induction hWrote with
  | nothing t => cases hMem
  | file e bytes location hLocate hNew hRest ih =>
    rcases List.mem_cons.mp hMem with rfl | hLater
    · exact ⟨location, hLocate, hNew⟩
    · rcases ih hLater with ⟨other, hOther, hOpen⟩
      rw [locate_put_file_iff _ location _ _ _ hNew] at hOther
      rw [Ne, directory_put_file_iff _ location _ _ hNew]
        at hOpen
      exact ⟨other, hOther, hOpen⟩

/- What has changed is the place of a written file. -/
theorem node?_eq_or
    (hWrote : Wrote out t files u)
    (location : Location) :
    u.node? location = t.node? location ∨
      ∃ file ∈ files,
        t.locate (file.1.target out) = .ok location ∧
          t.node? location ≠ some .directory ∧
          u.node? location = some (.file file.2) := by
  induction hWrote with
  | nothing t => exact .inl rfl
  | @file t u rest e bytes here hLocate hNew hRest ih =>
    rcases ih with hSame | ⟨file, hMem, hThere, hOpen, hNode⟩
    · rw [t.node?_put here location _ (t.ne_root _ hNew)]
        at hSame
      split at hSame
      · rename_i hIs
        subst hIs
        exact
          .inr ⟨(e, bytes), by simp, hLocate, hNew, hSame⟩
      · exact .inl hSame
    · rw [t.locate_put_file_iff here _ _ _ hNew] at hThere
      rw [Ne, t.directory_put_file_iff here _ _ hNew] at hOpen
      exact
        .inr
          ⟨file, List.mem_cons_of_mem _ hMem, hThere, hOpen,
            hNode⟩

/- At the place of a written file there is a file. -/
theorem exists_bytes
    (hWrote : Wrote out t files u)
    (file : Entry × Bytes)
    (location : Location)
    (hMem : file ∈ files)
    (hLocate : t.locate (file.1.target out) = .ok location) :
    ∃ bytes, u.node? location = some (.file bytes) := by
  induction hWrote with
  | nothing t => cases hMem
  | @file t u rest e bytes here hHere hNew hRest ih =>
    rcases List.mem_cons.mp hMem with rfl | hLater
    · have hIs : here = location :=
        Except.ok.inj (hHere.symm.trans hLocate)
      subst hIs
      rcases hRest.node?_eq_or here with
        hSame | ⟨later, -, -, -, hNode⟩
      · refine ⟨bytes, ?_⟩
        rw [hSame, t.node?_put here here _ (t.ne_root _ hNew),
          if_pos rfl]
      · exact ⟨later.2, hNode⟩
    · apply ih hLater
      exact (t.locate_put_file_iff here _ _ _ hNew).mpr hLocate

/-
  A file is left as it was written, unless a later one was
  written to the same place with other contents.
-/
theorem node?_of_last
    (before after : List (Entry × Bytes))
    (file : Entry × Bytes)
    (location : Location)
    (hWrote : Wrote out t (before ++ file :: after) u)
    (hLocate : t.locate (file.1.target out) = .ok location)
    (hLast :
      ∀ later ∈ after,
        t.locate (later.1.target out) = .ok location →
          later.2 = file.2) :
    u.node? location = some (.file file.2) := by
  induction before generalizing t with
  | nil =>
    cases hWrote with
    | file e bytes here hHere hNew hRest =>
      have hIs : here = location :=
        Except.ok.inj (hHere.symm.trans hLocate)
      subst hIs
      rcases hRest.node?_eq_or here with
        hSame | ⟨later, hMem, hThere, -, hNode⟩
      · rw [hSame, t.node?_put here here _ (t.ne_root _ hNew),
          if_pos rfl]
      · rw [t.locate_put_file_iff here _ _ _ hNew] at hThere
        rw [hNode, hLast later hMem hThere]
  | cons first before ih =>
    cases hWrote with
    | file e bytes here hHere hNew hRest =>
      apply ih hRest
      · exact (t.locate_put_file_iff here _ _ _ hNew).mpr hLocate
      · intro later hMem hThere
        rw [t.locate_put_file_iff here _ _ _ hNew] at hThere
        exact hLast later hMem hThere

/-
  A file can be read as it was written, unless a later one
  with other contents went to the same place.
-/
theorem read_of_last
    (before after : List (Entry × Bytes))
    (file : Entry × Bytes)
    (hWrote : Wrote out t (before ++ file :: after) u)
    (hLast :
      ∀ later ∈ after,
        t.locate (later.1.target out) =
            t.locate (file.1.target out) →
          later.2 = file.2) :
    u.read (file.1.target out) = .ok file.2 := by
  rcases hWrote.exists_location file (by simp) with
    ⟨location, hLocate, -⟩
  rw [u.read_eq_ok_iff _ location _
    ((hWrote.locate_iff _ _).mpr hLocate)]
  apply node?_of_last before after file location hWrote hLocate
  intro later hMem hThere
  exact hLast later hMem (hThere.trans hLocate.symm)

/- What is read at two paths to one written file is the same. -/
theorem read_unique
    (hWrote : Wrote out t files u)
    (file other : Entry × Bytes)
    (bytes bytes' : Bytes)
    (hMem : file ∈ files)
    (hSame :
      t.locate (file.1.target out) =
        t.locate (other.1.target out))
    (hRead : u.read (file.1.target out) = .ok bytes)
    (hRead' : u.read (other.1.target out) = .ok bytes') :
    bytes = bytes' := by
  rcases hWrote.exists_location file hMem with
    ⟨location, hLocate, -⟩
  have hHere := (hWrote.locate_iff _ _).mpr hLocate
  have hThere :=
    (hWrote.locate_iff _ _).mpr (hSame.symm.trans hLocate)
  rw [u.read_eq_ok_iff _ location _ hHere] at hRead
  rw [u.read_eq_ok_iff _ location _ hThere] at hRead'
  exact
    Node.file.inj (Option.some.inj (hRead.symm.trans hRead'))

end Wrote

variable (out : Path)
variable (t : FileTree)

/- Nothing is written once a file is refused. -/
theorem writeAll_of_error
    (e : Entry)
    (bytes : Bytes)
    (files : List (Entry × Bytes))
    (error : FileError)
    (hWrite : t.write (e.target out) bytes = .error error) :
    (writeAll out ((e, bytes) :: files) :
        StateM FileTree _) t =
      ({ failure := some (.file error) }, t) := by
  have hFile := t.run_write_of_error _ bytes error hWrite
  simp only [writeAll, bind, StateT.bind]
  rw [← Entry.target, hFile]
  rfl

/- The other files follow one that is written. -/
theorem writeAll_of_ok
    (u : FileTree)
    (e : Entry)
    (bytes : Bytes)
    (files : List (Entry × Bytes))
    (hWrite : t.write (e.target out) bytes = .ok u) :
    let after := (writeAll out files : StateM FileTree _) u
    (writeAll out ((e, bytes) :: files) :
        StateM FileTree _) t =
      ({ after.1 with
          written := e.target out :: after.1.written
          reports :=
            .extracted e.qualifiedName bytes.size
                (e.target out).text ::
              after.1.reports },
        after.2) := by
  have hFile := t.run_write_of_ok u _ bytes hWrite
  simp only [writeAll, bind, StateT.bind]
  rw [← Entry.target, hFile]
  rfl

/- Where files are written, only a file can be refused. -/
theorem failure_writeAll
    (files : List (Entry × Bytes))
    (error : ExtractError)
    (hFailure :
      ((writeAll out files : StateM FileTree _)
        t).1.failure = some error) :
    ∃ cause, error = .file cause := by
  induction files generalizing t with
  | nil => cases hFailure
  | cons file files ih =>
    rcases file with ⟨e, bytes⟩
    cases hWrite : t.write (e.target out) bytes with
    | error cause =>
      rw [writeAll_of_error out t e bytes files cause hWrite]
        at hFailure
      exact ⟨cause, (Option.some.inj hFailure).symm⟩
    | ok u =>
      rw [writeAll_of_ok out t u e bytes files hWrite]
        at hFailure
      exact ih u hFailure

/- Files are written in order until one is refused. -/
theorem wrote_writeAll
    (files : List (Entry × Bytes)) :
    let r := (writeAll out files : StateM FileTree _) t
    ∃ done rest,
      files = done ++ rest ∧
        Wrote out t done r.2 ∧
        r.1.written = done.map (·.1.target out) ∧
        (r.1.failure = none ↔ rest = []) := by
  induction files generalizing t with
  | nil =>
    exact ⟨[], [], rfl, .nothing t, rfl, by simp [writeAll]; rfl⟩
  | cons file files ih =>
    rcases file with ⟨e, bytes⟩
    cases hWrite : t.write (e.target out) bytes with
    | error error =>
      rw [writeAll_of_error out t e bytes files error hWrite]
      exact
        ⟨[], (e, bytes) :: files, rfl, .nothing t, rfl,
          by simp⟩
    | ok u =>
      rw [writeAll_of_ok out t u e bytes files hWrite]
      rcases t.write_eq_ok u _ bytes hWrite with
        ⟨location, hLocate, hNew, rfl⟩
      rcases ih (t.put location (.file bytes)) with
        ⟨done, rest, hSplit, hWrote, hWritten, hFailure⟩
      exact
        ⟨(e, bytes) :: done, rest, by rw [hSplit]; rfl,
          .file e bytes location hLocate hNew hWrote,
          congrArg (e.target out :: ·) hWritten, hFailure⟩

end Disc

end Beeb

------------------------------------------------------------
-- Whole Extractions
------------------------------------------------------------

namespace Beeb

namespace Disc

/- The files of an image that bear one of some names. -/
theorem Image.find_eq
    (image : Image)
    (names : List String) :
    image.find names =
      image.entries.filter fun e =>
        names = [] ∨ e.filename ∈ names := by
  unfold find
  cases names with
  | nil => exact (List.filter_eq_self.mpr (by simp)).symm
  | cons name names => simp [List.contains_eq_mem]

/- Entries whose bytes can all be looked up. -/
theorem payloads_eq_ok
    (image : Image)
    (entries : List Entry)
    (files : List (Entry × Bytes))
    (hFiles : payloads image entries = .ok files) :
    files.map Prod.fst = entries ∧
      ∀ file ∈ files,
        image.contents file.1 = .ok file.2 := by
  rw [payloads, mapM_eq_ok_iff] at hFiles
  induction hFiles with
  | nil => simp
  | cons hFirst hRest ih =>
    rename_i e file entries files
    cases hBytes : image.contents e with
    | error error =>
      rw [hBytes] at hFirst
      cases hFirst
    | ok bytes =>
      rw [hBytes] at hFirst
      cases hFirst
      rw [List.map_cons, ih.1, List.forall_mem_cons]
      exact ⟨rfl, hBytes, ih.2⟩

/-
  A directory to write to is made if there is nothing at its
  path.
-/
theorem prepare_eq
    (out : Path)
    (t : FileTree) :
    (prepare out : StateM FileTree _) t =
      match t.kind? out with
      | some .directory => (.ok (), t)
      | some .file => (.error (.notADirectory out), t)
      | none =>
        let made :=
          (Files.makeDirectories out : StateM FileTree _) t
        (made.1.mapError .file, made.2) := by
  simp only [prepare, bind, StateT.bind, Files.kind?]
  cases t.kind? out with
  | none => rfl
  | some kind => cases kind <;> rfl

/- An attempt to have a directory to write to. -/
theorem builds_prepare
    (out : Path)
    (t : FileTree) :
    let r := (prepare out : StateM FileTree _) t
    t.Builds r.2 ∧
      (r.1 = .ok () → r.2.kind? out = some .directory) ∧
      (t.kind? out = some .directory → r = (.ok (), t)) := by
  intro r
  simp only [r, prepare_eq]
  cases hKind : t.kind? out with
  | none =>
    rcases t.builds_makeDirectories out with ⟨hBuilds, hOk⟩
    refine ⟨hBuilds, fun hMade => hOk ?_, nofun⟩
    exact (mapError_eq_ok_iff _ _ _).mp hMade
  | some kind =>
    cases kind with
    | file => exact ⟨.refl t, nofun, nofun⟩
    | directory =>
      exact ⟨.refl t, fun _ => hKind, fun _ => rfl⟩

/-
  What an extraction did: it came to a tree with its
  directory, and wrote some of the selected entries from the
  first on; all of them if it did not fail.
-/
structure Extracts
    (image : Image)
    (names : List String)
    (out : Path)
    (t built u : FileTree)
    (done : List (Entry × Bytes))
    (result : Extraction) : Prop where
  builds : t.Builds built
  existing : t.kind? out = some .directory → built = t
  directory :
    done ≠ [] ∨ result.failure = none →
      built.kind? out = some .directory
  wrote : Wrote out built done u
  selected : done.map Prod.fst <+: image.find names
  contents : ∀ file ∈ done, image.contents file.1 = .ok file.2
  written : result.written = done.map (·.1.target out)
  finished :
    result.failure = none →
      done.map Prod.fst = image.find names

/- The parts of an extraction, one after the other. -/
theorem extract_eq
    (image : Image)
    (names : List String)
    (out : Path)
    (t : FileTree) :
    let ready := (prepare out : StateM FileTree _) t
    (extract image names out : StateM FileTree _) t =
      match ready.1 with
      | .error e => ({ failure := some e }, ready.2)
      | .ok () =>
        match payloads image (image.find names) with
        | .error e =>
          ({ failure := some (.disc e) }, ready.2)
        | .ok files =>
          (writeAll out files : StateM FileTree _) ready.2 := by
  intro ready
  simp only [extract, bind, StateT.bind]
  rcases hReady : (prepare out : StateM FileTree _) t with
    ⟨result, built⟩
  simp only [ready, hReady]
  cases result with
  | error e => rfl
  | ok done =>
    cases payloads image (image.find names) <;> rfl

/- Every extraction does that. -/
theorem extracts
    (image : Image)
    (names : List String)
    (out : Path)
    (t : FileTree) :
    let r := (extract image names out : StateM FileTree _) t
    ∃ built done,
      Extracts image names out t built r.2 done r.1 := by
  rcases hPrepare : (prepare out : StateM FileTree _) t with
    ⟨result, built⟩
  have hBuilds := builds_prepare out t
  rw [hPrepare] at hBuilds
  rcases hBuilds with ⟨hBuilds, hOk, hExisting⟩
  -- An extraction that writes nothing fails.
  have hStops :
      ∀ failure,
        (t.kind? out = some .directory → built = t) →
          Extracts image names out t built built []
            { failure := some failure } := by
    intro failure hSame
    exact
      ⟨hBuilds, hSame, by simp, .nothing built,
        List.nil_prefix, by simp, rfl, by simp⟩
  rw [extract_eq, hPrepare]
  cases result with
  | error e =>
    refine ⟨built, [], hStops e fun hOut => ?_⟩
    cases hExisting hOut
  | ok ready =>
    have hSame :
        t.kind? out = some .directory → built = t :=
      fun hOut => congrArg Prod.snd (hExisting hOut)
    cases hFiles : payloads image (image.find names) with
    | error e =>
      exact ⟨built, [], hStops (.disc e) hSame⟩
    | ok files =>
      rcases payloads_eq_ok image _ files hFiles with
        ⟨hEntries, hContents⟩
      rcases wrote_writeAll out built files with
        ⟨done, rest, hSplit, hWrote, hWritten, hFailure⟩
      refine
        ⟨built, done, hBuilds, hSame, fun _ => hOk rfl,
          hWrote, ?_, ?_, hWritten, ?_⟩
      · rw [← hEntries, hSplit, List.map_append]
        exact List.prefix_append _ _
      · intro file hMem
        apply hContents
        rw [hSplit]
        exact List.mem_append_left _ hMem
      · intro hNone
        rw [← hEntries, hSplit, hFailure.mp hNone,
          List.append_nil]

namespace Extracts

variable {image : Image}
variable {names : List String}
variable {out : Path}
variable {t built u : FileTree}
variable {done : List (Entry × Bytes)}
variable {result : Extraction}

/- Every selected entry is among the files, if all are. -/
theorem exists_file
    (hRun : Extracts image names out t built u done result)
    (hDone : result.failure = none)
    (e : Entry)
    (hMem : e ∈ image.find names) :
    ∃ bytes,
      (e, bytes) ∈ done ∧ image.contents e = .ok bytes := by
  rw [← hRun.finished hDone] at hMem
  rcases List.mem_map.mp hMem with ⟨file, hFile, rfl⟩
  exact ⟨file.2, hFile, hRun.contents file hFile⟩

/-
  The file of an entry is as it is in the image, unless that
  of a later one with other contents is at the same place.
-/
theorem kept_of_last
    (before after : List (Entry × Bytes))
    (file : Entry × Bytes)
    (hRun :
      Extracts image names out t built u
        (before ++ file :: after) result)
    (hLast :
      ∀ later ∈ after,
        built.locate (later.1.target out) =
            built.locate (file.1.target out) →
          image.contents later.1 = image.contents file.1) :
    ∃ bytes,
      image.contents file.1 = .ok bytes ∧
        u.read (file.1.target out) = .ok bytes := by
  have hBytes := hRun.contents file (by simp)
  refine ⟨file.2, hBytes, ?_⟩
  apply Wrote.read_of_last before after file hRun.wrote
  intro later hMem hSame
  have hLater := hRun.contents later (by simp [hMem])
  have hContents := hLast later hMem hSame
  rw [hLater, hBytes] at hContents
  exact Except.ok.inj hContents

end Extracts

end Disc

end Beeb
