import Beeb.Files.Tree

/-
  What operations do to a tree: they put one node where none
  or a file was, and no path that led somewhere leads
  elsewhere afterwards.

  Main declarations:
    * `FileTree.Keeps`
    * `FileTree.locate_of_keeps`
    * `FileTree.write_eq_ok`
    * `FileTree.WellFormed`
    * `FileTree.WellFormed.parent_of_locate`
    * `FileTree.Builds`
    * `FileTree.builds_makeDirectories`
-/

------------------------------------------------------------
-- Directories That Stay
------------------------------------------------------------

namespace Beeb

namespace FileTree

/- The directories of a tree are there in another one. -/
structure Keeps
    (t u : FileTree) : Prop where
  current : u.current = t.current
  directory : ∀ location,
    t.node? location = some .directory →
      u.node? location = some .directory

/- A tree keeps its own directories. -/
theorem Keeps.refl
    (t : FileTree) :
    t.Keeps t :=
  ⟨rfl, fun _ hDirectory => hDirectory⟩

/- What is kept twice is kept. -/
theorem Keeps.trans
    {t u v : FileTree}
    (hFirst : t.Keeps u)
    (hThen : u.Keeps v) :
    t.Keeps v :=
  ⟨hThen.current.trans hFirst.current,
    fun location hDirectory =>
      hThen.directory location
        (hFirst.directory location hDirectory)⟩

/- Parts that could be followed lead to the same place. -/
theorem follow_of_keeps
    {t u : FileTree}
    (hKeeps : t.Keeps u)
    (start location : Location)
    (parts : List String)
    (hFollow : t.follow start parts = .ok location) :
    u.follow start parts = .ok location := by
  induction parts generalizing start with
  | nil => exact hFollow
  | cons part parts ih =>
    rw [follow] at hFollow ⊢
    cases hNode : t.node? start with
    | none =>
      rw [hNode] at hFollow
      cases hFollow
    | some node =>
      cases node with
      | file contents =>
        rw [hNode] at hFollow
        cases hFollow
      | directory =>
        rw [hNode] at hFollow
        rw [hKeeps.directory start hNode]
        exact ih _ hFollow

/- Parts are followed one after the other. -/
theorem follow_append
    (t : FileTree)
    (start : Location)
    (parts more : List String) :
    t.follow start (parts ++ more) =
      (t.follow start parts).bind (t.follow · more) := by
  induction parts generalizing start with
  | nil => rfl
  | cons part parts ih =>
    rw [List.cons_append, follow, follow]
    cases t.node? start with
    | none => rfl
    | some node =>
      cases node with
      | file contents => rfl
      | directory => exact ih _

/- When a path leads to a location. -/
theorem locate_eq_ok_iff
    (t : FileTree)
    (path : Path)
    (location : Location) :
    t.locate path = .ok location ↔
      path.hasNul = false ∧
        t.follow (if path.slashes = 0 then t.current else [])
            path.parts =
          .ok location := by
  let start := if path.slashes = 0 then t.current else []
  cases hNul : path.hasNul with
  | true =>
    have hRun : t.locate path = .error ⟨.nulInPath, path⟩ := by
      rw [locate, if_pos hNul]
    rw [hRun]
    exact ⟨nofun, nofun⟩
  | false =>
    have hRun :
        t.locate path =
          (t.follow start path.parts).mapError (⟨·, path⟩) := by
      rw [locate, if_neg (by simp [hNul])]
    rw [hRun]
    change _ ↔ _ ∧ t.follow start path.parts = .ok location
    cases t.follow start path.parts with
    | error e =>
      change Except.error _ = .ok location ↔ _
      exact ⟨nofun, nofun⟩
    | ok found =>
      change Except.ok found = .ok location ↔ _
      exact ⟨fun hIs => ⟨rfl, congrArg _ (Except.ok.inj hIs)⟩,
        fun hIs => congrArg _ (Except.ok.inj hIs.2)⟩

/- A path that led to a location still leads there. -/
theorem locate_of_keeps
    {t u : FileTree}
    (hKeeps : t.Keeps u)
    (path : Path)
    (location : Location)
    (hLocate : t.locate path = .ok location) :
    u.locate path = .ok location := by
  rw [locate_eq_ok_iff] at hLocate ⊢
  rw [hKeeps.current]
  exact
    ⟨hLocate.1, follow_of_keeps hKeeps _ _ _ hLocate.2⟩

/- A path leads to a directory. -/
theorem kind?_eq_directory_iff
    (t : FileTree)
    (path : Path) :
    t.kind? path = some .directory ↔
      ∃ location,
        t.locate path = .ok location ∧
          t.node? location = some .directory := by
  unfold kind?
  cases t.locate path with
  | error e => simp
  | ok location =>
    cases hNode : t.node? location with
    | none => simp [hNode]
    | some node => cases node <;> simp [hNode, Node.kind]

/- Where no directory is, there is no root. -/
theorem ne_root
    (t : FileTree)
    (location : Location)
    (hNew : t.node? location ≠ some .directory) :
    location ≠ [] := by
  rintro rfl
  exact hNew rfl

/- What is put where no directory is leaves the others. -/
theorem keeps_put
    (t : FileTree)
    (location : Location)
    (node : Node)
    (hNew : t.node? location ≠ some .directory) :
    t.Keeps (t.put location node) := by
  refine ⟨rfl, fun other hDirectory => ?_⟩
  have hOther : other ≠ location := by
    rintro rfl
    exact hNew hDirectory
  rw [t.node?_put location other node (t.ne_root _ hNew),
    if_neg hOther]
  exact hDirectory

/- A file that is put there makes no directory. -/
theorem keeps_of_put_file
    (t : FileTree)
    (location : Location)
    (contents : Bytes)
    (hNew : t.node? location ≠ some .directory) :
    (t.put location (.file contents)).Keeps t := by
  refine ⟨rfl, fun other hDirectory => ?_⟩
  rw [t.node?_put location other _ (t.ne_root _ hNew)]
    at hDirectory
  split at hDirectory
  · cases hDirectory
  · exact hDirectory

/- So it changes no directory, -/
theorem directory_put_file_iff
    (t : FileTree)
    (location other : Location)
    (contents : Bytes)
    (hNew : t.node? location ≠ some .directory) :
    (t.put location (.file contents)).node? other =
        some .directory ↔
      t.node? other = some .directory :=
  ⟨(t.keeps_of_put_file location contents hNew).directory other,
    (t.keeps_put location _ hNew).directory other⟩

/- and no path leads elsewhere. -/
theorem locate_put_file_iff
    (t : FileTree)
    (location other : Location)
    (contents : Bytes)
    (path : Path)
    (hNew : t.node? location ≠ some .directory) :
    (t.put location (.file contents)).locate path =
        .ok other ↔
      t.locate path = .ok other :=
  ⟨locate_of_keeps (t.keeps_of_put_file location _ hNew) path _,
    locate_of_keeps (t.keeps_put location _ hNew) path _⟩

end FileTree

end Beeb

------------------------------------------------------------
-- Single Operations
------------------------------------------------------------

namespace Beeb

namespace FileTree

/- An operation that gives a tree. -/
theorem change_of_ok
    (operation : FileTree → Except FileError FileTree)
    (t u : FileTree)
    (hOk : operation t = .ok u) :
    change operation t = (.ok (), u) := by
  rw [change, hOk]

/- An operation that is refused. -/
theorem change_of_error
    (operation : FileTree → Except FileError FileTree)
    (t : FileTree)
    (e : FileError)
    (hError : operation t = .error e) :
    change operation t = (.error e, t) := by
  rw [change, hError]

/- An attempt to write a file that succeeds. -/
theorem run_write_of_ok
    (t u : FileTree)
    (path : Path)
    (contents : Bytes)
    (hWrite : t.write path contents = .ok u) :
    (Files.write path contents : StateM FileTree _) t =
      (.ok (), u) :=
  change_of_ok (·.write path contents) t u hWrite

/- An attempt to write a file that is refused. -/
theorem run_write_of_error
    (t : FileTree)
    (path : Path)
    (contents : Bytes)
    (e : FileError)
    (hWrite : t.write path contents = .error e) :
    (Files.write path contents : StateM FileTree _) t =
      (.error e, t) :=
  change_of_error (·.write path contents) t e hWrite

/- What a file that could be written did to a tree. -/
theorem write_eq_ok
    (t u : FileTree)
    (path : Path)
    (contents : Bytes)
    (hWrite : t.write path contents = .ok u) :
    ∃ location,
      t.locate path = .ok location ∧
        t.node? location ≠ some .directory ∧
        u = t.put location (.file contents) := by
  unfold write at hWrite
  cases hLocate : t.locate path with
  | error e =>
    rw [hLocate] at hWrite
    cases hWrite
  | ok location =>
    rw [hLocate] at hWrite
    simp only [Except.bind] at hWrite
    refine ⟨location, rfl, ?_⟩
    split at hWrite
    · cases hWrite
    · rename_i hNew
      exact ⟨hNew, (Except.ok.inj hWrite).symm⟩

/- What a directory that could be made did to a tree. -/
theorem makeDirectory_eq_ok
    (t u : FileTree)
    (path : Path)
    (hMake : t.makeDirectory path = .ok u) :
    ∃ location,
      t.locate path = .ok location ∧
        t.node? location = none ∧
        u = t.put location .directory := by
  unfold makeDirectory at hMake
  cases hLocate : t.locate path with
  | error e =>
    rw [hLocate] at hMake
    cases hMake
  | ok location =>
    rw [hLocate] at hMake
    simp only [Except.bind] at hMake
    refine ⟨location, rfl, ?_⟩
    split at hMake
    · cases hMake
    · rename_i hNone
      exact ⟨hNone, (Except.ok.inj hMake).symm⟩

/- The contents of the file at the end of a path. -/
theorem read_eq_ok_iff
    (t : FileTree)
    (path : Path)
    (location : Location)
    (contents : Bytes)
    (hLocate : t.locate path = .ok location) :
    t.read path = .ok contents ↔
      t.node? location = some (.file contents) := by
  unfold read
  rw [hLocate]
  simp only [Except.bind]
  cases t.node? location with
  | none => simp
  | some node => cases node <;> simp

end FileTree

end Beeb

------------------------------------------------------------
-- Well-Formed Trees
------------------------------------------------------------

namespace Beeb

namespace FileTree

/-
  A tree in which everything is in a directory, and paths
  begin at one.
-/
structure WellFormed
    (t : FileTree) : Prop where
  current : t.node? t.current = some .directory
  parent : ∀ location name,
    t.node? (location ++ [name]) ≠ none →
      t.node? location = some .directory

/- The tree that has nothing but its root. -/
theorem wellFormed_empty :
    WellFormed {} := by
  refine ⟨rfl, fun location name hSome => ?_⟩
  simp [node?] at hSome

variable {t : FileTree}

/- What a directory is in is a directory. -/
theorem WellFormed.directory_above
    (hTree : t.WellFormed)
    (location : Location)
    (hDirectory : t.node? location = some .directory) :
    t.node? location.dropLast = some .directory := by
  rcases List.eq_nil_or_concat location with
    rfl | ⟨above, name, hLocation⟩
  · rfl
  · rw [List.concat_eq_append] at hLocation
    rw [hLocation] at hDirectory ⊢
    rw [List.dropLast_concat]
    exact hTree.parent above name (by simp [hDirectory])

/- A place is a directory or in one. -/
def InDirectory
    (t : FileTree)
    (location : Location) : Prop :=
  t.node? location = some .directory ∨
    ∃ directory name,
      location = directory ++ [name] ∧
        t.node? directory = some .directory

/-
  Parts that can be followed from such a place lead to one.
-/
theorem WellFormed.inDirectory_of_follow
    (hTree : t.WellFormed)
    (parts : List String)
    (start location : Location)
    (hStart : t.InDirectory start)
    (hFollow : t.follow start parts = .ok location) :
    t.InDirectory location := by
  induction parts generalizing start with
  | nil =>
    rw [← Except.ok.inj hFollow]
    exact hStart
  | cons part parts ih =>
    rw [follow] at hFollow
    cases hNode : t.node? start with
    | none =>
      rw [hNode] at hFollow
      cases hFollow
    | some node =>
      rw [hNode] at hFollow
      cases node with
      | file contents => cases hFollow
      | directory =>
        refine ih (enter start part) ?_ hFollow
        unfold enter
        split
        · refine .inl ?_
          exact hTree.directory_above start hNode
        · exact .inr ⟨start, part, rfl, hNode⟩

/-
  A path leads to a directory or into one.
-/
theorem WellFormed.parent_of_locate
    (hTree : t.WellFormed)
    (path : Path)
    (location : Location)
    (hLocate : t.locate path = .ok location)
    (hNew : t.node? location ≠ some .directory) :
    ∃ directory name,
      location = directory ++ [name] ∧
        t.node? directory = some .directory := by
  rw [locate_eq_ok_iff] at hLocate
  have hStart :
      t.InDirectory
        (if path.slashes = 0 then t.current else []) := by
    split
    · exact .inl hTree.current
    · exact .inl rfl
  exact
    (hTree.inDirectory_of_follow path.parts _ location hStart
      hLocate.2).resolve_left hNew

/- What is put where a path leads keeps a tree well-formed. -/
theorem WellFormed.put
    (hTree : t.WellFormed)
    (path : Path)
    (location : Location)
    (node : Node)
    (hLocate : t.locate path = .ok location)
    (hNew : t.node? location ≠ some .directory) :
    (t.put location node).WellFormed := by
  rcases hTree.parent_of_locate path location hLocate hNew with
    ⟨directory, name, rfl, hDirectory⟩
  have hKeeps := t.keeps_put _ node hNew
  refine ⟨hKeeps.directory _ hTree.current, ?_⟩
  intro above other hSome
  apply hKeeps.directory
  rw [t.node?_put _ _ node (by simp)] at hSome
  split at hSome
  · rename_i hSame
    rw [(List.append_inj' hSame rfl).1]
    exact hDirectory
  · exact hTree.parent above other hSome

end FileTree

end Beeb

------------------------------------------------------------
-- New Directories
------------------------------------------------------------

namespace Beeb

namespace FileTree

/-
  One tree comes from another one by new directories at
  places where nothing was.
-/
structure Builds
    (t u : FileTree) : Prop where
  keeps : t.Keeps u
  wellFormed : t.WellFormed → u.WellFormed
  node : ∀ location,
    u.node? location = t.node? location ∨
      t.node? location = none ∧
        u.node? location = some .directory

/- No new directory may be needed. -/
theorem Builds.refl
    (t : FileTree) :
    t.Builds t :=
  ⟨.refl t, id, fun _ => .inl rfl⟩

/- More directories may be needed. -/
theorem Builds.trans
    {t u v : FileTree}
    (hFirst : t.Builds u)
    (hThen : u.Builds v) :
    t.Builds v := by
  refine
    ⟨hFirst.keeps.trans hThen.keeps,
      hThen.wellFormed ∘ hFirst.wellFormed, ?_⟩
  intro location
  have hKept := hThen.keeps.directory location
  rcases hFirst.node location with hSame | ⟨hNone, hNew⟩
  · rw [← hSame]
    exact hThen.node location
  · exact .inr ⟨hNone, hKept hNew⟩

variable (t : FileTree)
variable (path : Path)

/- An attempt to make a directory. -/
theorem builds_makeDirectory :
    let r :=
      (Files.makeDirectory path : StateM FileTree _) t
    t.Builds r.2 ∧
      (r.1 = .ok () → r.2.kind? path = some .directory) := by
  intro r
  cases hMake : t.makeDirectory path with
  | error e =>
    have hRun : r = (.error e, t) :=
      change_of_error (·.makeDirectory path) t e hMake
    rw [hRun]
    exact ⟨.refl t, fun hOk => by cases hOk⟩
  | ok u =>
    have hRun : r = (.ok (), u) :=
      change_of_ok (·.makeDirectory path) t u hMake
    rw [hRun]
    rcases t.makeDirectory_eq_ok u path hMake with
      ⟨location, hLocate, hNone, rfl⟩
    have hNew : t.node? location ≠ some .directory := by
      simp [hNone]
    have hRoot := t.ne_root location hNew
    have hKeeps := t.keeps_put location .directory hNew
    refine ⟨⟨hKeeps, ?_, ?_⟩, fun _ => ?_⟩
    · intro hTree
      exact
        hTree.put path location .directory hLocate hNew
    · intro other
      rw [t.node?_put location other _ hRoot]
      split
      · rename_i hSame
        rw [hSame]
        exact .inr ⟨hNone, rfl⟩
      · exact .inl rfl
    · refine (kind?_eq_directory_iff _ path).mpr
        ⟨location, locate_of_keeps hKeeps path _ hLocate, ?_⟩
      rw [t.node?_put location location _ hRoot, if_pos rfl]

/-
  After an attempt a refusal is forgiven if there is a
  directory already.
-/
theorem builds_forgive
    (existing : Bool)
    (attempt : Except FileError Unit × FileTree)
    (hBuilds : t.Builds attempt.2)
    (hOk :
      attempt.1 = .ok () →
        attempt.2.kind? path = some .directory) :
    let r :=
      (Files.forgive path existing attempt.1 :
        StateM FileTree _) attempt.2
    t.Builds r.2 ∧
      (r.1 = .ok () → r.2.kind? path = some .directory) := by
  rcases attempt with ⟨result, u⟩
  cases result with
  | ok done => exact ⟨hBuilds, fun _ => hOk rfl⟩
  | error e =>
    have hRun :
        Files.forgive (m := StateM FileTree) path existing
            (.error e) u =
          (if existing && u.kind? path = some .directory then
            .ok ()
          else .error e, u) := by
      simp only [Files.forgive, bind, StateT.bind, pure,
        Files.kind?]
      split <;> rfl
    simp only [hRun]
    refine ⟨hBuilds, fun hForgiven => ?_⟩
    split at hForgiven
    · simp_all
    · cases hForgiven

/- One attempt, and a second one below new directories. -/
theorem makeUpTo_succ
    (existing : Bool)
    (count : Nat) :
    let here := path.upTo (count + 1)
    let first :=
      (Files.makeDirectory here : StateM FileTree _) t
    (Files.makeUpTo path existing (count + 1) :
        StateM FileTree _) t =
      match first.1 with
      | .error ⟨.notFound, _⟩ =>
        let above :=
          (Files.makeUpTo path true count :
            StateM FileTree _) first.2
        match above.1 with
        | .error e => (.error e, above.2)
        | .ok () =>
          let second :=
            (Files.makeDirectory here : StateM FileTree _)
              above.2
          (Files.forgive here existing second.1 :
            StateM FileTree _) second.2
      | result =>
        (Files.forgive here existing result :
          StateM FileTree _) first.2 := by
  intro here first
  have hRun :
      (Files.makeUpTo path existing (count + 1) :
          StateM FileTree _) t =
        (match first.1 with
        | .error ⟨.notFound, _⟩ => do
          match ← Files.makeUpTo path true count with
          | .error e => return .error e
          | .ok () =>
            Files.forgive here existing
              (← Files.makeDirectory here)
        | result => Files.forgive here existing result :
          StateM FileTree _) first.2 :=
    rfl
  rw [hRun]
  rcases first with ⟨result, u⟩
  cases result with
  | ok done => rfl
  | error e =>
    rcases e with ⟨cause, refused⟩
    cases cause with
    | notFound =>
      simp only [bind, StateT.bind]
      rcases (Files.makeUpTo path true count :
          StateM FileTree _) u with
        ⟨above, v⟩
      cases above <;> rfl
    | _ => rfl

/- An attempt to make directories, one below the other. -/
theorem builds_makeUpTo
    (existing : Bool)
    (count : Nat) :
    let r :=
      (Files.makeUpTo path existing count :
        StateM FileTree _) t
    t.Builds r.2 ∧
      (r.1 = .ok () →
        r.2.kind? (path.upTo count) = some .directory) := by
  induction count generalizing t existing with
  | zero =>
    rcases t.builds_makeDirectory (path.upTo 0) with
      ⟨hBuilds, hOk⟩
    exact t.builds_forgive _ existing _ hBuilds hOk
  | succ count ih =>
    let here := path.upTo (count + 1)
    rcases t.builds_makeDirectory here with ⟨hBuilds, hOk⟩
    have hForgive :=
      t.builds_forgive here existing _ hBuilds hOk
    rw [t.makeUpTo_succ path existing count]
    simp only
    split
    · rcases ih _ true with ⟨hAbove, -⟩
      split
      · exact ⟨hBuilds.trans hAbove, fun hIs => by cases hIs⟩
      · rcases builds_makeDirectory _ here with
          ⟨hAgain, hOkAgain⟩
        exact
          builds_forgive t here existing _
            ((hBuilds.trans hAbove).trans hAgain) hOkAgain
    · exact hForgive

/- An attempt to make a directory and those above it. -/
theorem builds_makeDirectories :
    let r :=
      (Files.makeDirectories path : StateM FileTree _) t
    t.Builds r.2 ∧
      (r.1 = .ok () → r.2.kind? path = some .directory) := by
  have hAll : path.upTo path.parts.length = path := by
    simp [Path.upTo]
  have hBuilds :=
    t.builds_makeUpTo path false path.parts.length
  rw [hAll] at hBuilds
  exact hBuilds

end FileTree

end Beeb
