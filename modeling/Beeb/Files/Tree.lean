import Beeb.Files.Basic
import Std.Data.TreeMap

/-
  Trees of files and directories.

  A tree maps locations to what is there.  A location is
  the list of names from the root down, so `..` is resolved
  when a path is followed, and only through directories.

  Key definitions include:
    * `Beeb.Location`
    * `Beeb.Node`
    * `Beeb.FileTree`
    * `Beeb.FileTree.node?`
    * `Beeb.FileTree.follow`
    * `Beeb.FileTree.locate`
    * `Beeb.FileTree.read`
    * `Beeb.FileTree.write`
    * `Beeb.FileTree.makeDirectory`
-/

------------------------------------------------------------
-- Trees
------------------------------------------------------------

namespace Beeb

/- The names from the root down to a file or directory. -/
abbrev Location := List String

/- What is at a location. -/
inductive Node where
| file (contents : Bytes)
| directory
deriving DecidableEq

/- What kind of thing is at a location. -/
def Node.kind : Node → FileKind
| .file _ => .file
| .directory => .directory

/-
  Files and directories, and the directory at which paths
  begin.
-/
structure FileTree where
  nodes : Std.TreeMap Location Node := ∅
  current : Location := []

namespace FileTree

/- What is at a location; the root is always a directory. -/
def node?
    (t : FileTree)
    (location : Location) : Option Node :=
  if location = [] then some .directory else t.nodes[location]?

/- Put something at a location. -/
def put
    (t : FileTree)
    (location : Location)
    (node : Node) : FileTree :=
  { t with nodes := t.nodes.insert location node }

/- What is where after something was put at a location. -/
theorem node?_put
    (t : FileTree)
    (location other : Location)
    (node : Node)
    (hRoot : location ≠ []) :
    (t.put location node).node? other =
      if other = location then some node
      else t.node? other := by
  unfold node? put
  by_cases hSame : other = location
  · subst hSame
    simp [hRoot]
  · by_cases hOther : other = []
    · subst hOther
      simp [hSame]
    · simp [hOther, hSame, Std.TreeMap.getElem?_insert, Ne.symm]

end FileTree

end Beeb

------------------------------------------------------------
-- Following Paths
------------------------------------------------------------

namespace Beeb

namespace FileTree

/-
  The location that a part of a path leads to from a
  directory.
-/
def enter
    (location : Location)
    (part : String) : Location :=
  if part = ".." then location.dropLast
  else location ++ [part]

/-
  Follow the parts of a path. All but the last must lead to
  directories; what the last leads to need not be there.
-/
def follow
    (t : FileTree)
    (location : Location) :
    List String → Except FileCause Location
| [] => .ok location
| part :: parts =>
  match t.node? location with
  | some .directory => t.follow (enter location part) parts
  | some (.file _) => .error .notADirectory
  | none => .error .notFound

/- The location of a path. -/
def locate
    (t : FileTree)
    (path : Path) : Except FileError Location :=
  if path.hasNul then .error ⟨.nulInPath, path⟩
  else
    let start := if path.slashes = 0 then t.current else []
    (t.follow start path.parts).mapError (⟨·, path⟩)

end FileTree

end Beeb

------------------------------------------------------------
-- Operations
------------------------------------------------------------

namespace Beeb

namespace FileTree

/- What a path leads to, if it leads anywhere. -/
def kind?
    (t : FileTree)
    (path : Path) : Option FileKind :=
  match t.locate path with
  | .ok location => (t.node? location).map Node.kind
  | .error _ => none

/- The contents of a file. -/
def read
    (t : FileTree)
    (path : Path) : Except FileError Bytes :=
  (t.locate path).bind fun location =>
    match t.node? location with
    | some (.file contents) => .ok contents
    | some .directory => .error ⟨.isADirectory, path⟩
    | none => .error ⟨.notFound, path⟩

/- The tree after a file is written. -/
def write
    (t : FileTree)
    (path : Path)
    (contents : Bytes) : Except FileError FileTree :=
  (t.locate path).bind fun location =>
    match t.node? location with
    | some .directory => .error ⟨.isADirectory, path⟩
    | _ => .ok (t.put location (.file contents))

/- The tree after a directory is made. -/
def makeDirectory
    (t : FileTree)
    (path : Path) : Except FileError FileTree :=
  (t.locate path).bind fun location =>
    match t.node? location with
    | some _ => .error ⟨.alreadyExists, path⟩
    | none => .ok (t.put location .directory)

/- Take the changed tree if an operation gave one. -/
def change
    (operation : FileTree → Except FileError FileTree) :
    StateM FileTree (Except FileError Unit) :=
  fun t =>
    match operation t with
    | .ok changed => (.ok (), changed)
    | .error e => (.error e, t)

/- Programs can run on a tree in memory. -/
instance : Files (StateM FileTree) where
  kind? path := fun t => (t.kind? path, t)
  read path := fun t => (t.read path, t)
  write path contents := change (·.write path contents)
  makeDirectory path := change (·.makeDirectory path)

end FileTree

end Beeb
