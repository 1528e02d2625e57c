import Beeb.Bytes
import Beeb.Files.Path
import Beeb.Text.Quoted

/-
  What a program does with files.

  Programs are written over any monad that can look at
  files and change them.

  Key definitions include:
    * `Beeb.FileCause`
    * `Beeb.FileError`
    * `Beeb.Files`
    * `Beeb.Files.makeDirectories`
-/

------------------------------------------------------------
-- Errors
------------------------------------------------------------

namespace Beeb

/- Why a file operation is refused. -/
inductive FileCause where
| notFound
| alreadyExists
| notADirectory
| isADirectory
/- The path holds a NUL character. -/
| nulInPath
deriving DecidableEq, Repr

namespace FileCause

/-
  The system's number of a cause; none for a path that no
  system is asked about.
-/
def number? : FileCause → Option Nat
| .notFound => some 2
| .alreadyExists => some 17
| .notADirectory => some 20
| .isADirectory => some 21
| .nulInPath => none

/- The wording of a cause. -/
def reason : FileCause → String
| .notFound => "No such file or directory"
| .alreadyExists => "File exists"
| .notADirectory => "Not a directory"
| .isADirectory => "Is a directory"
| .nulInPath => "embedded null byte"

end FileCause

/- A refused operation on a path. -/
structure FileError where
  cause : FileCause
  path : Path
deriving DecidableEq, Repr

/- The wording of a file error. -/
def FileError.message
    (e : FileError) : String :=
  match e.cause.number? with
  | some number =>
    "[Errno " ++ Nat.repr number ++ "] " ++ e.cause.reason ++
      ": " ++ Text.quote e.path.text
  | none => e.cause.reason

end Beeb

------------------------------------------------------------
-- Operations
------------------------------------------------------------

namespace Beeb

/- What a path leads to. -/
inductive FileKind where
| file
| directory
deriving DecidableEq, Repr

/- Operations on files. -/
class Files (m : Type → Type) where
  /- What a path leads to, if it leads anywhere. -/
  kind? : Path → m (Option FileKind)
  /- The contents of a file. -/
  read : Path → m (Except FileError Bytes)
  /- Write a file, whether or not there was one. -/
  write : Path → Bytes → m (Except FileError Unit)
  /- Make one directory. -/
  makeDirectory : Path → m (Except FileError Unit)

namespace Files

variable {m : Type → Type} [Monad m] [Files m]

/-
  Forgive a refusal to make a directory that is there
  already.
-/
def forgive
    (path : Path)
    (existing : Bool)
    (result : Except FileError Unit) :
    m (Except FileError Unit) := do
  match result with
  | .ok () => return .ok ()
  | .error e =>
    if existing && (← Files.kind? path) = some .directory then
      return .ok ()
    else return .error e

/-
  Make the directory of the first parts of a path, and those
  above it that are missing. `existing` tells whether it may
  be there already; those above may.
-/
def makeUpTo
    (path : Path)
    (existing : Bool) :
    Nat → m (Except FileError Unit)
| 0 => do
  forgive (path.upTo 0) existing
    (← Files.makeDirectory (path.upTo 0))
| count + 1 => do
  let here := path.upTo (count + 1)
  match ← Files.makeDirectory here with
  | .error ⟨.notFound, _⟩ =>
    match ← makeUpTo path true count with
    | .error e => return .error e
    | .ok () =>
      forgive here existing (← Files.makeDirectory here)
  | result => forgive here existing result

/-
  Make a new directory and those above it that are missing.
-/
def makeDirectories
    (path : Path) : m (Except FileError Unit) :=
  makeUpTo path false path.parts.length

end Files

end Beeb
